import Interop.Descriptor.Codec
import Interop.Registry.Objects

/-! # Classes and wrappers as JSON -/

namespace Interop

open Schema Json

def objectKindWords : List (String × ObjectKind) := ObjectKind.all.map fun kind => (kind.name, kind)

namespace NativeClass

def toJson (cls : NativeClass) : Json :=
  .obj [("type_name", .str cls.typeName), ("hash", .str cls.hash.text),
    ("kind", .str cls.kind.name), ("library", writeText cls.library),
    ("hooks", Json.ofOption RefHooks.toJson cls.hooks), ("get_type", writeText cls.getType),
    ("size", writeCount cls.size)]

end NativeClass

/-- A wrapper with the names under which it is held. -/
def Wrapper.toJson (wrapper : Wrapper) (names : List String) : Json :=
  .obj [("type", .str wrapper.cls.typeName), ("kind", .str wrapper.cls.kind.name),
    ("handle", .nat wrapper.handle.toNat), ("owned", .bool wrapper.owned),
    ("strong", .nat wrapper.strong), ("same", writeTexts names),
    ("payload", writeText wrapper.payload), ("debug", .str wrapper.debugText)]

end Interop
