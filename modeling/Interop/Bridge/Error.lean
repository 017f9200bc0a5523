import Interop.Mapping.Error
import Interop.Memory.Heap
import Interop.Registry.Error

/-! # Errors of calls through the bridge

One type for each phase of a call, and their union.
-/

namespace Interop

/-- Why a managed value does not fit a descriptor or a layout. -/
inductive MarshalError where
  | missingArgument (name : String)
  | tooManyArguments (callable : String) (expected actual : Nat)
  | unknownRecord (name : String)
  | unknownField (record field : String)
  | opaqueRecord (name : String)
  | fieldAccess (record field access : String)
  | missingInstance (name : String)
  | unknownCallable (name : String)
  | unknownType (name : String)
  | invalidValue (name expected actual : String)
  deriving DecidableEq, Repr, Inhabited

namespace MarshalError

def kindName : MarshalError → String
  | missingArgument _ => "MissingArgument"
  | tooManyArguments .. => "TooManyArguments"
  | unknownRecord _ => "UnknownRecord"
  | unknownField .. => "UnknownField"
  | opaqueRecord _ => "OpaqueRecord"
  | fieldAccess .. => "FieldAccess"
  | missingInstance _ => "MissingInstance"
  | unknownCallable _ => "UnknownCallable"
  | unknownType _ => "UnknownType"
  | invalidValue .. => "InvalidValue"

def message : MarshalError → String
  | missingArgument name => "missing argument '" ++ name ++ "'"
  | tooManyArguments callable expected actual =>
    "'" ++ callable ++ "' takes " ++ toString expected ++ " arguments, got " ++ toString actual
  | unknownRecord name => "unknown record '" ++ name ++ "'"
  | unknownField record field => "record '" ++ record ++ "' has no field '" ++ field ++ "'"
  | opaqueRecord name => "record '" ++ name ++ "' is opaque"
  | fieldAccess record field access =>
    "field '" ++ record ++ "." ++ field ++ "' is not " ++ access
  | missingInstance name => "method '" ++ name ++ "' requires an instance"
  | unknownCallable name => "unknown callable '" ++ name ++ "'"
  | unknownType name => "unknown type '" ++ name ++ "'"
  | invalidValue name expected actual =>
    "expected " ++ expected ++ " for '" ++ name ++ "', got " ++ actual

end MarshalError

/-- A failure that native code reported. -/
structure NativeError where
  domain : String
  code : Int
  message : String
  deriving DecidableEq, Repr, Inhabited

def NativeError.describe (error : NativeError) : String :=
  error.domain ++ " (" ++ toString error.code ++ "): " ++ error.message

/-- Why an asynchronous operation ended without an outcome. -/
inductive AsyncError where
  /-- Native code gave the ready callback up without invoking it. -/
  | completionDropped (operation : String)
  | missingResultToken (operation : String)
  deriving DecidableEq, Repr, Inhabited

namespace AsyncError

def kindName : AsyncError → String
  | completionDropped _ => "CompletionDropped"
  | missingResultToken _ => "MissingResultToken"

def message : AsyncError → String
  | completionDropped operation =>
    "async operation '" ++ operation ++ "' was dropped before completion"
  | missingResultToken operation =>
    "async operation '" ++ operation ++ "' completed without a result token"

end AsyncError

/-- Why a call, a field access or a registration failed. -/
inductive BindError where
  | mapping (failure : MappingFailure)
  | registration (error : RegistrationError)
  | identity (error : IdentityError)
  | dispatch (error : DispatchError)
  | marshal (error : MarshalError)
  | native (error : NativeError)
  | async (error : AsyncError)
  deriving DecidableEq, Repr, Inhabited

namespace BindError

def kindName : BindError → String
  | mapping failure => "Mapping." ++ failure.kindName
  | registration error => "Registration." ++ error.kindName
  | identity error => "Identity." ++ error.kindName
  | dispatch error => "Dispatch." ++ error.kindName
  | marshal error => "Marshal." ++ error.kindName
  | native _ => "Native.NativeCallError"
  | async error => "Async." ++ error.kindName

def message : BindError → String
  | mapping failure => failure.message
  | registration error => error.message
  | identity error => error.message
  | dispatch error => error.message
  | marshal error => error.message
  | native error => error.describe
  | async error => error.message

def isIdentity : BindError → Bool
  | identity _ => true
  | _ => false

def isNative : BindError → Bool
  | native _ => true
  | _ => false

def isDispatch : BindError → Bool
  | dispatch _ => true
  | _ => false

def isAsync : BindError → Bool
  | async _ => true
  | _ => false

end BindError

end Interop
