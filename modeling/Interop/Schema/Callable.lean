import Interop.Schema.TypeRef

/-! # Callables, callback types and signals -/

namespace Interop.Schema

inductive Direction where
  | input
  | output
  | inout
  deriving DecidableEq, Repr, Inhabited

/-- Whether the native side sees the parameter through a slot. -/
def Direction.isByReference : Direction → Bool
  | input => false
  | output | inout => true

/-- How long native code may keep a managed callback. -/
inductive CallbackScope where
  | call
  | async
  | notified
  | forever
  deriving DecidableEq, Repr, Inhabited

structure Param where
  name : String
  type : TypeRef
  direction : Direction := .input
  callerAllocates : Bool := false
  optional : Bool := false
  closureIndex : Option Nat := none
  destroyIndex : Option Nat := none
  scope : Option CallbackScope := none
  deriving DecidableEq, Repr, Inhabited

namespace Param

/-- The slots in which a callback parameter gets its user data and its release function. -/
def withSlots (param : Param) (closure destroy : Option Nat) (scope : CallbackScope) : Param :=
  { param with closureIndex := closure, destroyIndex := destroy, scope := some scope }

/-- Whether the parameter stands for a variable number of arguments. -/
def isVariadic (param : Param) : Bool :=
  param.name == "..." || param.type.name == "va_list" || param.type.name == "..."

end Param

inductive CallableKind where
  | function
  | method
  | constructor
  deriving DecidableEq, Repr, Inhabited

structure Callable where
  name : String
  symbol : String
  kind : CallableKind := .function
  params : List Param := []
  returns : TypeRef := .void
  throws : Bool := false
  deprecated : Bool := false
  introspectable : Bool := true
  deriving DecidableEq, Repr, Inhabited

namespace Callable

def isMethod (callable : Callable) : Bool := callable.kind == .method

def isVariadic (callable : Callable) : Bool := callable.params.any Param.isVariadic

def withParam (callable : Callable) (param : Param) : Callable :=
  { callable with params := callable.params ++ [param] }

def returning (callable : Callable) (type : TypeRef) : Callable :=
  { callable with returns := type }

end Callable

structure Callback where
  name : String
  cType : Option String := none
  params : List Param := []
  returns : TypeRef := .void
  throws : Bool := false
  deriving DecidableEq, Repr, Inhabited

namespace Callback

def isVariadic (callback : Callback) : Bool := callback.params.any Param.isVariadic

def withParam (callback : Callback) (param : Param) : Callback :=
  { callback with params := callback.params ++ [param] }

def returning (callback : Callback) (type : TypeRef) : Callback :=
  { callback with returns := type }

end Callback

/-- An event that instances of a class emit. -/
structure Signal where
  name : String
  params : List Param := []
  returns : TypeRef := .void
  deriving DecidableEq, Repr, Inhabited

namespace Signal

def withParam (signal : Signal) (param : Param) : Signal :=
  { signal with params := signal.params ++ [param] }

def returning (signal : Signal) (type : TypeRef) : Signal :=
  { signal with returns := type }

end Signal

end Interop.Schema
