/-! # Primitive kinds

The scalar types that a value can have at the boundary, the spellings that schemas use for them,
and their sizes for a given pointer size.
-/

namespace Interop

inductive PrimitiveKind where
  | void
  | bool
  | int8
  | uint8
  | int16
  | uint16
  | int32
  | uint32
  | int64
  | uint64
  | float
  | double
  | gtype
  | unichar
  | pointer
  deriving DecidableEq, Repr, Inhabited

namespace PrimitiveKind

def all : List PrimitiveKind :=
  [void, bool, int8, uint8, int16, uint16, int32, uint32, int64, uint64, float, double, gtype,
    unichar, pointer]

def name : PrimitiveKind → String
  | void => "void"
  | bool => "bool"
  | int8 => "int8"
  | uint8 => "uint8"
  | int16 => "int16"
  | uint16 => "uint16"
  | int32 => "int32"
  | uint32 => "uint32"
  | int64 => "int64"
  | uint64 => "uint64"
  | float => "float"
  | double => "double"
  | gtype => "gtype"
  | unichar => "unichar"
  | pointer => "pointer"

/-- The spellings that schemas use for each kind. -/
def spellings : PrimitiveKind → List String
  | void => ["none", "void"]
  | bool => ["gboolean", "bool"]
  | int8 => ["gint8", "gchar", "int8"]
  | uint8 => ["guint8", "guchar", "uint8"]
  | int16 => ["gint16", "gshort", "int16"]
  | uint16 => ["guint16", "gushort", "uint16"]
  | int32 => ["gint", "gint32", "int", "int32"]
  | uint32 => ["guint", "guint32", "uint", "uint32"]
  | int64 => ["gint64", "glong", "gssize", "goffset", "gintptr", "time_t", "int64"]
  | uint64 => ["guint64", "gulong", "gsize", "guintptr", "uint64"]
  | float => ["gfloat", "float"]
  | double => ["gdouble", "double"]
  | gtype => ["GType"]
  | unichar => ["gunichar"]
  | pointer => ["gpointer", "gconstpointer"]

def ofSpelling? (spelling : String) : Option PrimitiveKind :=
  all.find? fun kind => kind.spellings.contains spelling

def size (pointerSize : Nat) : PrimitiveKind → Nat
  | void => 0
  | int8 | uint8 => 1
  | int16 | uint16 => 2
  | bool | int32 | uint32 | float | unichar => 4
  | int64 | uint64 | double => 8
  | gtype | pointer => pointerSize

/-- Every kind is aligned to its own size; nothing is aligned to one. -/
def alignment (pointerSize : Nat) : PrimitiveKind → Nat
  | void => 1
  | kind => kind.size pointerSize

/-- Whether values of this kind are read with a sign. -/
def isSigned : PrimitiveKind → Bool
  | int8 | int16 | int32 | int64 => true
  | _ => false

def isFloat : PrimitiveKind → Bool
  | float | double => true
  | _ => false

end PrimitiveKind

def isStringSpelling (spelling : String) : Bool :=
  spelling == "utf8" || spelling == "filename"

end Interop
