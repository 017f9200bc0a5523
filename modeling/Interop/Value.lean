import Interop.Number.Power
import Interop.Handle
import Interop.Number.Binary
import Interop.Registry.Objects

/-! # Managed values

What managed code passes to native code and gets from it. A float is kept by its bits. Objects and
callbacks have an identity: they stand for one wrapper and for one managed function.
-/

namespace Interop

/-- The place of a callback among all that were ever made. -/
structure CallbackId where
  index : Nat
  deriving DecidableEq, Repr, Inhabited

inductive Value where
  | null
  | bool (value : Bool)
  | int (value : Int64)
  | uint (value : UInt64)
  | float (bits : UInt64)
  | string (value : String)
  | pointer (handle : Handle)
  /-- A wrapper, with the handle it wraps. -/
  | object (id : WrapperId) (handle : Handle)
  | array (items : List Value)
  | callback (id : CallbackId)
  deriving Inhabited

namespace Value

def ofNat (n : Nat) : Value := uint (UInt64.ofNat n)

def ofText? (text : Option String) : Value := text.elim null string

def typeName : Value → String
  | null => "null"
  | bool _ => "bool"
  | int _ => "int"
  | uint _ => "uint"
  | float _ => "float"
  | string _ => "string"
  | pointer _ => "pointer"
  | object .. => "object"
  | array _ => "array"
  | callback _ => "callback"

/-! ## Views

A view is there if the value can stand for something of that type without a loss. -/

def asHandle? : Value → Option Handle
  | null => some .null
  | pointer handle => some handle
  | object _ handle => some handle
  | _ => none

/-- The handle, if there is one and it is not null. -/
def nonNull? (value : Value) : Option Handle := value.asHandle?.filter (!·.isNull)

def isNull (value : Value) : Bool := value.asHandle?.any Handle.isNull

def asBool? : Value → Option Bool
  | bool value => some value
  | int value => some (value != 0)
  | uint value => some (value != 0)
  | _ => none

def asInt? : Value → Option Int64
  | int value => some value
  | uint value => if value.toNat < twoPow 63 then some value.toInt64 else none
  | bool value => some (if value then 1 else 0)
  | _ => none

def asUInt? : Value → Option UInt64
  | uint value => some value
  | int value => if 0 ≤ value then some value.toUInt64 else none
  | bool value => some (if value then 1 else 0)
  | pointer handle => some handle.addr
  | _ => none

/-- The bits of the number as a double; integers are rounded. -/
def asFloat? : Value → Option UInt64
  | float bits => some bits
  | int value => some (Binary.ofInt value.toInt)
  | uint value => some (Binary.ofInt value.toNat)
  | _ => none

def asString? : Value → Option String
  | string value => some value
  | _ => none

def asArray? : Value → Option (List Value)
  | array items => some items
  | _ => none

def asCallback? : Value → Option CallbackId
  | callback id => some id
  | _ => none

def isObject : Value → Bool
  | object .. => true
  | _ => false

/-- Whether the value ends an array that is terminated by a zero element. -/
def isZero : Value → Bool
  | null => true
  | bool value => !value
  | int value => value == 0
  | uint value => value == 0
  | float bits => Binary.isZero bits
  | pointer handle => handle.isNull
  | _ => false

mutual

/-- Equality: of one kind and equal, where objects and callbacks are equal only to themselves. -/
def equal : Value → Value → Bool
  | null, null => true
  | bool a, bool b => a == b
  | int a, int b => a == b
  | uint a, uint b => a == b
  | float a, float b => Binary.equal a b
  | string a, string b => a == b
  | pointer a, pointer b => a == b
  | object a _, object b _ => a == b
  | array a, array b => equalItems a b
  | callback a, callback b => a == b
  | _, _ => false

/-- Equality of arrays, item by item. -/
def equalItems : List Value → List Value → Bool
  | [], [] => true
  | a :: restA, b :: restB => equal a b && equalItems restA restB
  | _, _ => false

end

/-! ## What a value keeps alive -/

/-- A counted thing that a value holds a share of. -/
inductive Share where
  | wrapper (id : WrapperId)
  | callback (id : CallbackId)
  deriving DecidableEq, Repr, Inhabited

mutual

/-- The shares that a value holds, in the order in which they are given up. -/
def shares : Value → List Share
  | object id _ => [.wrapper id]
  | callback id => [.callback id]
  | array items => sharesOf items
  | _ => []

/-- The shares that the items of an array hold. -/
def sharesOf : List Value → List Share
  | [] => []
  | item :: rest => shares item ++ sharesOf rest

end

end Value

end Interop
