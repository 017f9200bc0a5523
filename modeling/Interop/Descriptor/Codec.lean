import Interop.Descriptor
import Interop.Schema.Codec

/-! # Descriptors as JSON

A descriptor is an object whose key `type` names its form and whose other keys are the parts of
that form. Absent parts are left out. Reading takes the whole object in before it looks at the
form, so even parts that no form knows must be readable.
-/

namespace Interop

open Schema Json

def trampolineWords : List (String × Trampoline) :=
  [("closure", .closure), ("async_ready", .asyncReady), ("destroy_notify", .destroyNotify)]

def primitiveWords : List (String × PrimitiveKind) :=
  PrimitiveKind.all.map fun kind => (kind.name, kind)

/-- A member that is left out when its value is absent. -/
def presentMember {α : Type} (key : String) (write : α → Json) :
    Option α → List (String × Json)
  | some value => [(key, write value)]
  | none => []

/-- Reads one word of a table. As the only key of an object it stands with `null` or an empty
object. -/
def readTaggedWord {α : Type} (table : List (String × α)) : Json → Option α
  | .str word => table.lookup word
  | .obj [(word, .null)] | .obj [(word, .obj [])] => table.lookup word
  | _ => none

namespace RefHooks

def toJson (hooks : RefHooks) : Json :=
  .obj [("ref_fn", .str hooks.refFn), ("unref_fn", .str hooks.unrefFn)]

def read (room : Nat) (value : Json) : Option RefHooks := do
  let parts ← Parts.ofJson? ["ref_fn", "unref_fn"] value
  return {
    refFn := ← parts.required "ref_fn" (Reader.string room)
    unrefFn := ← parts.required "unref_fn" (Reader.string room) }

end RefHooks

namespace ArrayLength

def toJson : ArrayLength → Json
  | fixed count => .obj [("fixed", Json.nat count)]
  | zeroTerminated => .str "zero_terminated"
  | param index => .obj [("param", Json.nat index)]
  | container => .str "container"

def read (room : Nat) : Json → Option ArrayLength
  | .obj [("fixed", value)] => (Reader.word room value).map fixed
  | .obj [("param", value)] => (Reader.word room value).map param
  | value => readTaggedWord [("zero_terminated", zeroTerminated), ("container", container)] value

end ArrayLength

namespace Descriptor

def writeOwnership (ownership : Ownership) : Json := writeWord transferWords ownership

mutual

def toJson : Descriptor → Json
  | primitive kind size =>
    .obj [("type", .str "primitive"), ("kind", writeWord primitiveWords kind),
      ("size", Json.nat size)]
  | string ownership => .obj [("type", .str "string"), ("ownership", writeOwnership ownership)]
  | boxed innerType library ownership getTypeFn =>
    .obj ([("type", .str "boxed"), ("inner_type", .str innerType), ("library", .str library),
      ("ownership", writeOwnership ownership)] ++ presentMember "get_type_fn" .str getTypeFn)
  | struct innerType library size inPlace ownership =>
    .obj [("type", .str "struct"), ("inner_type", .str innerType), ("library", .str library),
      ("size", Json.nat size), ("inline", .bool inPlace), ("ownership", writeOwnership ownership)]
  | object ownership hooks =>
    .obj ([("type", .str "object"), ("ownership", writeOwnership ownership)] ++
      presentMember "hooks" RefHooks.toJson hooks)
  | callback trampoline params result scope userDataIndex destroyIndex =>
    .obj ([("type", .str "callback"), ("trampoline", writeWord trampolineWords trampoline),
      ("params", .arr (toJsons params)), ("result", toJson result),
      ("scope", writeWord scopeWords scope)] ++
      presentMember "user_data_index" Json.nat userDataIndex ++
      presentMember "destroy_index" Json.nat destroyIndex)
  | array element ownership length kind elementSize =>
    .obj [("type", .str "array"), ("element", toJson element),
      ("ownership", writeOwnership ownership), ("length", length.toJson),
      ("kind", writeWord arrayKindWords kind), ("element_size", Json.nat elementSize)]
  | reference inner => .obj [("type", .str "reference"), ("inner", toJson inner)]
  | null => .obj [("type", .str "null")]

def toJsons : List Descriptor → List Json
  | [] => []
  | descriptor :: rest => toJson descriptor :: toJsons rest

end

def takeForm? : Json → Option (Json × Json)
  | .obj members =>
    match members.filter (·.1 == "type") with
    | [(_, form)] => some (form, .obj (members.filter (·.1 != "type")))
    | _ => none
  | .arr (form :: rest) => some (form, .arr rest)
  | _ => none

inductive Form where
  | primitive | string | boxed | struct | object | callback | array | reference | null

def formWords : List (String × Form) :=
  [("primitive", .primitive), ("string", .string), ("boxed", .boxed), ("struct", .struct),
    ("object", .object), ("callback", .callback), ("array", .array), ("reference", .reference),
    ("null", .null)]

/-- Reads which form a descriptor has. Inside of another descriptor a form may also be named by its
place in the list of forms. -/
def readForm (nested : Bool) : Json → Option Form
  | .str word => formWords.lookup word
  | .int place => if nested && 0 ≤ place then (formWords[place.toNat]?).map (·.2) else none
  | _ => none

def readOwnership (parts : Parts) : Option Ownership :=
  parts.required "ownership" (readTaggedWord transferWords)

/-- Reads the parts of a form from what stands beside its name. Parts that are descriptors are read
by `inner`. -/
def readParts (inner : Json → Option Descriptor) (room : Nat) (rest : Json) :
    Form → Option Descriptor
  | .primitive => do
    let parts ← Parts.ofJson? ["kind", "size"] rest
    return .primitive (← parts.required "kind" (readTaggedWord primitiveWords))
      (← parts.required "size" (Reader.word room))
  | .string => do
    let parts ← Parts.ofJson? ["ownership"] rest
    return .string (← readOwnership parts)
  | .boxed => do
    let parts ← Parts.ofJson? ["inner_type", "library", "ownership", "get_type_fn"] rest
    return .boxed (← parts.required "inner_type" (Reader.string room))
      (← parts.required "library" (Reader.string room)) (← readOwnership parts)
      (← parts.withDefault "get_type_fn" none (readText room))
  | .struct => do
    let parts ← Parts.ofJson? ["inner_type", "library", "size", "inline", "ownership"] rest
    return .struct (← parts.required "inner_type" (Reader.string room))
      (← parts.required "library" (Reader.string room))
      (← parts.required "size" (Reader.word room))
      (← parts.withDefault "inline" false (Reader.bool room)) (← readOwnership parts)
  | .object => do
    let parts ← Parts.ofJson? ["ownership", "hooks"] rest
    return .object (← readOwnership parts)
      (← parts.withDefault "hooks" none (Reader.optional RefHooks.read room))
  | .callback => do
    let parts ← Parts.ofJson? ["trampoline", "params", "result", "scope", "user_data_index",
      "destroy_index"] rest
    let params ← parts.required "params" fun
      | .arr items => items.mapM inner
      | _ => none
    return .callback (← parts.required "trampoline" (readTaggedWord trampolineWords)) params
      (← parts.required "result" inner)
      (← parts.required "scope" (readTaggedWord scopeWords))
      (← parts.withDefault "user_data_index" none (readCount room))
      (← parts.withDefault "destroy_index" none (readCount room))
  | .array => do
    let parts ← Parts.ofJson? ["element", "ownership", "length", "kind", "element_size"] rest
    return .array (← parts.required "element" inner) (← readOwnership parts)
      (← parts.required "length" (ArrayLength.read room))
      (← parts.required "kind" (readTaggedWord arrayKindWords))
      (← parts.required "element_size" (Reader.word room))
  | .reference => do
    let parts ← Parts.ofJson? ["inner"] rest
    return .reference (← parts.required "inner" inner)
  | .null => do
    let _ ← Parts.ofJson? [] rest
    return .null

/-- Reads a descriptor from a value that is readable to its last part. -/
def readIntact (nested : Bool) : Reader Descriptor
  | 0, _ => none
  | room + 1, value => do
    let (form, rest) ← takeForm? value
    readParts (readIntact true room) room rest (← readForm nested form)

def read : Reader Descriptor := fun room value =>
  if Json.intact room value then readIntact false room value else none

end Descriptor

end Interop
