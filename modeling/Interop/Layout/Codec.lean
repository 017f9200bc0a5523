import Interop.Json.Basic
import Interop.Layout.Basic

/-! # Layouts as JSON -/

namespace Interop

def FieldLayout.toJson (field : FieldLayout) : Json :=
  .arr [.str field.field, .nat field.offset, .nat field.size, .nat field.alignment]

def TypeLayout.members (layout : TypeLayout) : List (String × Json) :=
  [("size", .nat layout.size), ("alignment", .nat layout.alignment),
    ("stride", .nat layout.stride)]

def RecordShape.members (shape : RecordShape) : List (String × Json) :=
  [("opaque", .bool shape.isSealed), ("size", .nat shape.total.size),
    ("alignment", .nat shape.total.alignment),
    ("fields", .arr (shape.fieldLayouts.map FieldLayout.toJson))]

def RecordShape.toJson (shape : RecordShape) : Json := .obj shape.members

end Interop
