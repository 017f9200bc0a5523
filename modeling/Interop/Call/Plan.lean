import Interop.Mapping.Import
import Interop.Descriptor

/-! # Plans of native calls

What a compiled callable says about a call: which native arguments there are, where each one comes
from, which of them the caller passes, and what comes back.
-/

namespace Interop

open Schema

/-- Where a native argument comes from. Indices of other arguments are native. -/
inductive ArgSource where
  | receiver
  | caller (index : Nat)
  | arrayLength (array : Nat)
  /-- The length of the returned array, written by the native side. -/
  | returnLength
  | closureData (callback : Nat)
  | destroyNotify (callback : Nat)
  /-- A slot that only the native side fills. -/
  | outSlot
  | errorSlot
  deriving DecidableEq, Repr, Inhabited

structure ArgFlags where
  optional : Bool := false
  nullable : Bool := false
  hidden : Bool := false
  output : Bool := false
  callerAllocates : Bool := false
  deriving DecidableEq, Repr, Inhabited

/-- The flags as a set of bits, the first one lowest. -/
def ArgFlags.bits (flags : ArgFlags) : Nat :=
  [flags.optional, flags.nullable, flags.hidden, flags.output, flags.callerAllocates].foldr
    (fun flag bits => 2 * bits + flag.toNat) 0

structure CallArg where
  name : String
  descriptor : Descriptor
  source : ArgSource
  flags : ArgFlags := {}
  deriving Repr, Inhabited

namespace CallArg

/-- Whether the argument is neither a companion of another one nor a mere slot. -/
def isVisible (arg : CallArg) : Bool := !arg.flags.hidden

/-- Whether the caller gets the argument's final value back. -/
def isResult (arg : CallArg) : Bool :=
  arg.flags.output && match arg.source with
    | .outSlot | .caller _ => true
    | _ => false

end CallArg

/-- A parameter as the caller sees it. -/
structure VisibleParam where
  name : String
  descriptor : Descriptor
  optional : Bool
  nullable : Bool
  deriving Repr, Inhabited

structure CallPlan where
  name : String
  symbol : String
  library : String
  kind : CallableKind
  args : List CallArg
  params : List VisibleParam
  returns : Descriptor
  returnNullable : Bool
  throws : Bool
  imports : List Import
  deriving Repr, Inhabited

namespace CallPlan

def isMethod (plan : CallPlan) : Bool := plan.kind == .method

def errorIndex? (plan : CallPlan) : Option Nat :=
  plan.args.findIdx? (·.source == .errorSlot)

/-- The places of the arguments that the caller gets back, in native order. -/
def outputs (plan : CallPlan) : List Nat :=
  (plan.args.zipIdx.filter (·.1.isResult)).map (·.2)

def arity (plan : CallPlan) : Nat := plan.params.length

/-- How many values the caller must pass at least. -/
def requiredArity (plan : CallPlan) : Nat :=
  (plan.params.reverse.dropWhile (·.optional)).length

end CallPlan

/-- A compiled signal. The handler takes the emitting instance first and its user data last. -/
structure SignalPlan where
  name : String
  handler : Descriptor
  params : List VisibleParam
  returns : Descriptor
  imports : List Import
  deriving Repr, Inhabited

end Interop
