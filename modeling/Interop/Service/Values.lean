import Interop.Bridge.Basic
import Interop.Registry.Codec
import Interop.Service.Request

/-! # Managed values in requests and answers

A value is an object whose only key names its kind, or `null`. A float is written by the digits of
its bits.
-/

namespace Interop.Service

/-- The bits of a float as they are written; those that are no number have one name. -/
def writeFloat (bits : UInt64) : Json :=
  if Binary.isNaN bits then .str "nan" else .str (Hex.word bits)

/-- The bits that are written for a float that is no number. -/
def quietBits : UInt64 := 0x7ff8000000000000

def readFloat? (text : String) : Option UInt64 :=
  if text = "nan" then some quietBits
  else if text.length = 16 then (Hex.read? text).map UInt64.ofNat
  else none

/-- Reads a value that stands for itself. -/
def readPlain? : Json → Option Value
  | .null => some .null
  | .obj [("bool", .bool value)] => some (.bool value)
  | .obj [("int", value)] => (Json.Reader.signed 0 value).map fun n => .int (Int64.ofInt n)
  | .obj [("uint", value)] => (Json.Reader.word 0 value).map .ofNat
  | .obj [("float", .str text)] => (readFloat? text).map .float
  | .obj [("str", .str text)] => some (.string text)
  | .obj [("ptr", value)] => (Json.Reader.word 0 value).map fun addr => .pointer (.ofNat addr)
  | _ => none

/-- A wrapper as part of a value, with the names under which it is held. -/
def writeFace (wrapper : Wrapper) (names : List String) : Json :=
  .obj [("type", .str wrapper.cls.typeName), ("kind", .str wrapper.cls.kind.name),
    ("handle", .nat wrapper.handle.toNat), ("owned", .bool wrapper.owned),
    ("same", .arr (names.map .str))]

mutual

def writeValue (face : WrapperId → Json) : Value → Json
  | .null => .null
  | .bool value => .obj [("bool", .bool value)]
  | .int value => .obj [("int", .int value.toInt)]
  | .uint value => .obj [("uint", .nat value.toNat)]
  | .float bits => .obj [("float", writeFloat bits)]
  | .string text => .obj [("str", .str text)]
  | .pointer handle => .obj [("ptr", .nat handle.toNat)]
  | .object id _ => .obj [("obj", face id)]
  | .array items => .obj [("arr", .arr (writeValues face items))]
  | .callback _ => .obj [("cb", .bool true)]

def writeValues (face : WrapperId → Json) : List Value → List Json
  | [] => []
  | item :: rest => writeValue face item :: writeValues face rest

end

def writeViews (value : Value) : Json :=
  .obj [
    ("type", .str value.typeName), ("null", .bool value.isNull),
    ("bool", Json.ofOption .bool value.asBool?),
    ("i64", Json.ofOption (fun n => .int n.toInt) value.asInt?),
    ("u64", Json.ofOption (fun n => .nat n.toNat) value.asUInt?),
    ("f64", Json.ofOption (fun bits => .obj [("float", writeFloat bits)]) value.asFloat?),
    ("str", Json.ofOption .str value.asString?),
    ("handle", Json.ofOption (fun handle => .str handle.text) value.asHandle?),
    ("object", .bool value.isObject),
    ("array", Json.ofOption (fun items => .nat items.length) value.asArray?),
    ("callback", .bool value.asCallback?.isSome)]

def ofDispatchError (error : DispatchError) : Json := failure error.kindName error.message

/-- What native code reported, as the last member of an error. -/
def reportMembers : BindError → List (String × Json)
  | .native error =>
    [("native", .arr [.str error.domain, .int error.code, .str error.message])]
  | _ => []

/-- An error of a call, with the phases it belongs to. -/
def ofBindError (error : BindError) : Json :=
  let phases := [error.isIdentity, error.isNative, error.isDispatch, error.isAsync]
  .obj ([("error", .str error.kindName), ("message", .str error.message),
    ("is", .arr (phases.map .bool))] ++ reportMembers error)

end Interop.Service
