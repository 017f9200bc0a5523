import Interop.Layout.Calculator
import Interop.Layout.Codec
import Interop.Service.Request

/-! # Questions about layouts -/

namespace Interop.Service

open Schema

def layoutQuery (query : Json) (calculator : Calculator) : Decode (Json × Calculator) := do
  match ← text query "q" with
  | "struct" => placed .struct
  | "union" => placed .union
  | "record" =>
    let record ← model Record.read (← need (field? query "record"))
    let (fields, calculator) :=
      calculator.layout (← textOr query "ns" "") record.kind record.fields (← flag query "private")
    return (.arr (fields.map FieldLayout.toJson), calculator)
  | "type" =>
    let (layout, calculator) := calculator.typeLayout? (← text query "name")
    return (Json.ofOption (.obj <| TypeLayout.members ·) layout, calculator)
  | "size" =>
    let (size, calculator) := calculator.typeSize (← text query "name")
    return (.nat size, calculator)
  | "shape" =>
    let (shape, calculator) := calculator.recordShape? (← text query "name")
    match shape with
    | none => return (.null, calculator)
    | some shape =>
      let asked ← match ← text? query "field" with
        | some field => pure [("field", Json.ofOption FieldLayout.toJson (shape.field? field))]
        | none => pure []
      return (.obj (shape.members ++ asked), calculator)
  | "field" =>
    let type ← model TypeRef.read (← need (field? query "type"))
    let (layout, calculator) := calculator.fieldTypeLayout (← textOr query "ns" "") type
    return (.obj layout.members, calculator)
  | "element" =>
    let type ← model TypeRef.read (← need (field? query "type"))
    let (layout, calculator) := calculator.elementLayout (← textOr query "ns" "") type
    let offset ← match ← nat? query "index" with
      | some index => pure [("offset", writeCount (layout.elementOffset? index))]
      | none => pure []
    return (.obj (layout.members ++ offset), calculator)
  | "align_up" =>
    return (.nat (alignUp (← nat query "offset") (← nat query "alignment")), calculator)
  | _ => .error .malformed
where
  placed (kind : RecordKind) : Decode (Json × Calculator) := do
    let space ← textOr query "ns" ""
    let fields ← (← list query "fields").mapM (model Field.read)
    let (layouts, calculator) := calculator.layout space kind fields (← flag query "private")
    let (size, calculator) := calculator.recordSize space kind fields
    return (.obj [("fields", .arr (layouts.map FieldLayout.toJson)), ("size", .nat size)],
      calculator)

def layout (request : Json) : Decode Json := do
  let repo ← repository request
  let queries ← list request "queries"
  let start : Calculator := { platform := ⟨repo, pointerSize request⟩ }
  return runSteps queries start fun calculator query =>
    match layoutQuery query calculator with
    | .ok (value, calculator) => (.arr [value, .nat calculator.size], calculator)
    | .error refusal => (refusal.toJson, calculator)

end Interop.Service
