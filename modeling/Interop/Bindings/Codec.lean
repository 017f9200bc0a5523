import Interop.Bindings.Basic
import Interop.Call.Codec
import Interop.Layout.Codec

/-! # Bindings as JSON -/

namespace Interop

open Schema

def writePlans (plans : List CallPlan) : Json := .arr (plans.map CallPlan.toJson)

def FieldBinding.toJson (field : FieldBinding) : Json :=
  .obj [("layout", field.layout.toJson), ("descriptor", field.descriptor.toJson),
    ("inline", .bool field.inPlace), ("readable", .bool field.readable),
    ("writable", .bool field.writable)]

def ClassBinding.toJson (cls : ClassBinding) : Json :=
  .obj [("name", .str cls.name), ("type_name", .str cls.typeName), ("kind", .str cls.kind.name),
    ("parent", writeText cls.parent), ("interfaces", writeTexts cls.interfaces),
    ("hooks", Json.ofOption RefHooks.toJson cls.hooks), ("get_type", writeText cls.getType),
    ("abstract", .bool cls.isAbstract), ("shape", Json.ofOption RecordShape.toJson cls.shape),
    ("fields", .arr (cls.fields.map FieldBinding.toJson)), ("methods", writePlans cls.methods),
    ("constructors", writePlans cls.constructors), ("functions", writePlans cls.functions),
    ("async", .arr (cls.asyncMethods.map AsyncPlan.toJson)),
    ("signals", .arr (cls.signals.map SignalPlan.toJson))]

def RecordBinding.toJson (record : RecordBinding) : Json :=
  .obj [("name", .str record.name), ("type_name", .str record.typeName),
    ("kind", .str record.kind.name), ("get_type", writeText record.getType),
    ("shape", record.shape.toJson), ("fields", .arr (record.fields.map FieldBinding.toJson)),
    ("methods", writePlans record.methods), ("constructors", writePlans record.constructors),
    ("functions", writePlans record.functions)]

def SkippedItem.toJson (item : SkippedItem) : Json :=
  .arr [writeText item.owner, .str item.name, .str item.path, .str item.reason.message]

def NamespaceBinding.toJson (space : NamespaceBinding) : Json :=
  .obj [("name", .str space.name), ("library", .str space.library),
    ("functions", writePlans space.functions),
    ("classes", .arr (space.classes.map ClassBinding.toJson)),
    ("records", .arr (space.records.map RecordBinding.toJson)),
    ("skipped", .arr (space.skipped.map SkippedItem.toJson))]

end Interop
