/-! # Why a type has no descriptor -/

namespace Interop

inductive UseContext where
  | parameter
  | returned
  | field
  | element
  deriving DecidableEq, Repr, Inhabited

def UseContext.describe : UseContext → String
  | parameter => "a parameter"
  | returned => "a return value"
  | field => "a field"
  | element => "an array element"

/-- Why a part of a schema cannot be mapped. -/
inductive MappingError where
  | unresolvedType (name : String)
  | variadicCallable (symbol : String)
  | variadicCallback (name : String)
  | unsupportedContainer (name : String)
  | nestedArray
  /-- A slot cannot hold a managed function. -/
  | unsupportedReference (inner : String)
  | unsupportedInContext (typeName : String) (context : UseContext)
  /-- A method needs the type of its instance. -/
  | methodWithoutInstance (symbol : String)
  | invalidParamIndex (index count : Nat)
  | unknownNamespace (name : String)
  deriving DecidableEq, Repr, Inhabited

namespace MappingError

def kindName : MappingError → String
  | unresolvedType _ => "UnresolvedType"
  | variadicCallable _ => "VariadicCallable"
  | variadicCallback _ => "VariadicCallback"
  | unsupportedContainer _ => "UnsupportedContainer"
  | nestedArray => "NestedArray"
  | unsupportedReference _ => "UnsupportedReference"
  | unsupportedInContext .. | methodWithoutInstance _ => "UnsupportedInContext"
  | invalidParamIndex .. => "InvalidParamIndex"
  | unknownNamespace _ => "UnknownNamespace"

def message : MappingError → String
  | unresolvedType name => "unresolved type '" ++ name ++ "'"
  | variadicCallable symbol => "callable '" ++ symbol ++ "' is variadic"
  | variadicCallback name => "callback '" ++ name ++ "' has a variadic signature"
  | unsupportedContainer name => "unsupported container type '" ++ name ++ "'"
  | nestedArray => "nested arrays are not supported"
  | unsupportedReference inner => "unsupported reference to " ++ inner
  | unsupportedInContext typeName context =>
    "type '" ++ typeName ++ "' cannot be used as " ++ context.describe
  | methodWithoutInstance symbol =>
    "type '" ++ symbol ++ "' cannot be used as a method without an instance type"
  | invalidParamIndex index count =>
    "parameter index " ++ toString index ++ " out of range (" ++ toString count ++ " parameters)"
  | unknownNamespace name => "unknown namespace '" ++ name ++ "'"

end MappingError

/-- How the mapping of a part of a schema ends if it gives no descriptor. -/
inductive MappingFailure where
  | refused (error : MappingError)
  /-- The signature of this callback type takes, at some depth, a callback of the same type. It is
  read again and again until the stack overflows, and nothing runs after that. -/
  | overflow (callback : String)
  deriving DecidableEq, Repr, Inhabited

namespace MappingFailure

def kindName : MappingFailure → String
  | refused error => error.kindName
  | overflow _ => "StackOverflow"

def message : MappingFailure → String
  | refused error => error.message
  | overflow callback => "stack overflow in '" ++ callback ++ "'"

/-- The callback type that could not be read to its end. -/
def overflow? : MappingFailure → Option String
  | refused _ => none
  | overflow callback => some callback

end MappingFailure

end Interop
