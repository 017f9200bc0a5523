import Interop.Descriptor.Codec
import Interop.Service.Request
import Interop.TypeHash

/-! # Questions about single values

Primitive kinds, hashes, type references, descriptors and repositories, each shown with what the
library says about it.
-/

namespace Interop.Service

open Schema

def primitive (request : Json) : Decode Json := do
  let pointerSize := pointerSize request
  let names ← list request "names"
  return .arr <| names.map fun name => answer do
    let name ← asText name
    let kind := (PrimitiveKind.ofSpelling? name).map fun kind => Json.obj [
      ("kind", writeWord primitiveWords kind), ("display", .str kind.name),
      ("size", .nat (kind.size pointerSize)), ("alignment", .nat (kind.alignment pointerSize)),
      ("signed", .bool kind.isSigned), ("float", .bool kind.isFloat)]
    return .obj [("primitive", kind.getD .null), ("string", .bool (isStringSpelling name))]

def typeHash (request : Json) : Decode Json := do
  let names ← list request "names"
  return .arr <| names.map fun name => answer do
    let hash := TypeHash.ofName (← asText name)
    return .arr [.str hash.text, .str hash.debugText, .bool hash.isEmpty,
      .str (toString hash.bits.toNat)]

def kinds : Json :=
  .obj [
    ("objects", .arr <| ObjectKind.all.map fun kind => .arr [.str kind.name, .str kind.name,
      .bool kind.preservesIdentity, .bool kind.usesIdentityTable, .bool kind.isReferenceCounted]),
    ("ownership", .arr <| Ownership.all.map fun ownership => .arr [
      writeWord transferWords ownership,
      .str ownership.name, .bool ownership.transfersReference])]

def parse (request : Json) : Decode Json := do
  let content ← text request "text"
  let what ← text request "what"
  let read {α : Type} (reader : Json.Reader α) : Decode α :=
    match (Json.parse? content).bind (reader Json.documentRoom) with
    | some value => .ok value
    | none => .error .unreadable
  match what with
  | "type_ref" => return (← read TypeRef.read).toJson
  | "param" => return (← read Param.read).toJson
  | "callable" => return (← read Callable.read).toJson
  | "field" => return (← read Field.read).toJson
  | "record" => return (← read Record.read).toJson
  | "class" => return (← read ObjectClass.read).toJson
  | "enum" => return (← read Enum.read).toJson
  | "descriptor" => return (← read Descriptor.read).toJson
  | "repository" =>
    let repo ← read Repository.read
    return .obj [("namespaces", .arr (repo.spaces.map Namespace.toJson)),
      ("types", .nat repo.typeCount)]
  | _ => .error .malformed

def ofSplit (parts : Option String × String) : Json := .arr [writeText parts.1, .str parts.2]

def typeRef (request : Json) : Decode Json := do
  let types ← list request "types"
  return .arr <| types.map fun value => answer do
    let type ← model TypeRef.read value
    return .obj [("void", .bool type.isVoid), ("array", .bool type.isArray),
      ("pointer", .bool type.isPointer), ("pointer_spelled", .bool type.isPointerSpelled),
      ("inline", .bool type.isInline), ("split", ofSplit (splitQualified type.name))]

def descriptor (request : Json) : Decode Json := do
  let pointerSize := pointerSize request
  let descriptors ← list request "descriptors"
  return .arr <| descriptors.map fun value => answer do
    let descriptor ← model Descriptor.read value
    return .obj [("json", descriptor.toJson), ("display", .str descriptor.text),
      ("kind", .str descriptor.kindName),
      ("ownership", Json.ofOption (writeWord transferWords) descriptor.ownership?),
      ("slot_size", .nat (descriptor.slotSize pointerSize)), ("null", .bool descriptor.isNull),
      ("wrapped", .bool descriptor.isWrapped)]

def ofResolved (type : Resolved) : Json :=
  .obj [("kind", .str type.decl.kindName), ("qualified", .str type.qualifiedName),
    ("local", .str type.localName), ("namespace", .str type.space.name),
    ("library", .str type.space.library),
    ("fields", writeCount (type.decl.asRecord?.map (·.fields.length)))]

def repo (request : Json) : Decode Json := do
  let repo ← repository request
  let queries ← list request "queries"
  let answers := queries.map fun query => answer do
    match ← text query "q" with
    | "resolve" =>
      return Json.ofOption ofResolved (repo.resolve? (← text query "ns") (← text query "name"))
    | "resolve_qualified" =>
      return Json.ofOption ofResolved (repo.resolveQualified? (← text query "name"))
    | "qualify" => return .str (qualify (← text query "ns") (← text query "name"))
    | "namespace" =>
      return Json.ofOption (fun space : Namespace => Json.obj [("library", .str space.library),
        ("version", .str space.version),
        ("counts", .arr [.nat space.classes.length, .nat space.interfaces.length,
          .nat space.records.length, .nat space.unions.length, .nat space.enums.length,
          .nat space.flags.length, .nat space.callbacks.length, .nat space.functions.length])])
        (repo.space? (← text query "name"))
    | "type_name" =>
      return .str (runtimeTypeName (← text? query "type_name") (← text? query "c_type")
        (← text query "name"))
    | _ => .error .malformed
  return .obj [("answers", .arr answers), ("namespaces", .arr (repo.spaces.map (.str ·.name))),
    ("types", .nat repo.typeCount)]

end Interop.Service
