import Interop.Bindings.Compile
import Interop.Bridge.Error
import Interop.Closures
import Interop.Memory.Access
import Interop.Quarks
import Interop.Symbols

/-! # The bridge between managed and native code

The whole state of a program that calls native code: the native heap with its symbols and types,
the registry of wrappers, the callbacks that were made, and the namespaces that are registered.
What native and managed functions do is up to a *host*; the bridge says when they are entered, with
what, and what they keep alive.
-/

namespace Interop

open Schema

/-- What stands for the functions on either side, and the state they share. -/
structure Host where
  Native : Type
  Managed : Type
  /-- What both can see and change besides the bridge. -/
  State : Type

/-- The library of the functions that every program has. -/
def coreLibrary : String := "libglib-2.0.so.0"

/-- A native function: one of those that every program has, or one of the host's. -/
inductive NativeFn (H : Host) where
  | quarkToString
  | quarkFromString
  | host (fn : H.Native)

structure NativeArg where
  descriptor : Descriptor
  value : Value
  optional : Bool := false
  deriving Inhabited

/-- A native function as it is entered. The values of the arguments belong to the caller. -/
structure NativeCall where
  symbol : String
  args : List NativeArg
  returns : Descriptor
  deriving Inhabited

/-- The place of an asynchronous operation's completion. -/
structure CompletionId where
  index : Nat
  deriving DecidableEq, Repr, Inhabited

/-- What has become of the completion of an asynchronous operation. -/
inductive Completion where
  | waiting
  /-- The ready callback was invoked with this token, which is kept for the operation. -/
  | delivered (token : Value)
  /-- The ready callback is gone and was never invoked. -/
  | lost
  /-- Nobody waits any more. -/
  | closed
  deriving Inhabited

/-- What a callback does when it is invoked. -/
inductive Behaviour (H : Host) where
  /-- It enters a managed function of the host. -/
  | managed (fn : H.Managed)
  /-- It wraps its objects and passes them on to the callback it holds. -/
  | lifting (params : List Descriptor) (inner : CallbackId)
  /-- It releases the callback of a token. -/
  | destroyNotify (token : Nat)
  /-- It delivers the token of a result, once. -/
  | ready (completion : CompletionId)

/-- A callback, how many shares of it there are, and the values it keeps alive. -/
structure CallbackCell (H : Host) where
  strong : Nat
  behaviour : Behaviour H
  captured : List Value

structure Bridge (H : Host) where
  heap : Heap := {}
  symbols : SymbolTable (NativeFn H) := {}
  /-- The runtime types with their parents, the last definition of a type first. -/
  types : List (String × Option String) := []
  quarks : QuarkTable := {}
  registry : Registry := {}
  /-- Every callback ever made. -/
  callbacks : Array (CallbackCell H) := #[]
  closures : ClosureTable CallbackId := {}
  completions : Array Completion := #[]
  /-- The parents that the schema declares. -/
  hierarchy : Hierarchy := {}
  /-- The namespaces that are registered, by name. -/
  namespaces : List (String × NamespaceBinding) := []
  host : H.State

/-- What the bridge needs to know and cannot change: the compiler of its repository, and what the
host's functions do. -/
structure Env (H : Host) where
  compiler : Compiler
  /-- Enters a native function. The value it gives belongs to the caller. -/
  native : H.Native → NativeCall → EStateM DispatchError (Bridge H) Value
  /-- Enters a native function and gives up the value it gives. -/
  effect : H.Native → NativeCall → EStateM DispatchError (Bridge H) Unit
  /-- Enters a managed function with the values it captured and its arguments. The value it gives
  belongs to the caller. -/
  managed : H.Managed → List Value → List Value → StateM (Bridge H) Value

/-- A step of native code. -/
abbrev Native (H : Host) (α : Type) := EStateM DispatchError (Bridge H) α

abbrev Run (H : Host) (α : Type) := EStateM BindError (Bridge H) α

def inCall {H : Host} {α : Type} (step : Native H α) : Run H α := fun bridge =>
  match step bridge with
  | .ok value bridge => .ok value bridge
  | .error error bridge => .error (.dispatch error) bridge

namespace Bridge

variable {H : Host}

/-- A program in which nothing has happened yet. -/
def start (host : H.State) : Bridge H where
  symbols :=
    (({} : SymbolTable (NativeFn H)).define coreLibrary "g_quark_to_string" .quarkToString).define
      coreLibrary "g_quark_from_string" .quarkFromString
  host := host

def defineType (bridge : Bridge H) (name : String) (parent : Option String) : Bridge H :=
  { bridge with types := (name, parent) :: bridge.types.filter fun entry => entry.1 != name }

def runtimeParent? (bridge : Bridge H) (name : String) : Option String :=
  (bridge.types.lookup name).join

/-- The parents that the runtime knows, and behind them those of the schema. -/
def parents (bridge : Bridge H) : ParentTable :=
  (bridge.types.filterMap fun entry => entry.2.map (entry.1, ·)) ++ bridge.hierarchy.parents

/-- What the registry may ask about natives. -/
def introspection (bridge : Bridge H) : Registry.Introspection :=
  ⟨bridge.heap.typeOf?, bridge.parents⟩

/-- Whether a type is another one or descends from it. -/
def isA (bridge : Bridge H) (name ancestor : String) : Bool :=
  (bridge.parents.chain name).contains ancestor

end Bridge

end Interop
