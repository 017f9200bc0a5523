import Interop.ObjectKind

/-! # Type references

How a schema spells the type of a parameter, a field or a returned value: a possibly qualified
name, the spelling in C, and for arrays the element and how its items are counted.
-/

namespace Interop.Schema

/-- A name split at its first point when both sides of it are there. -/
def splitQualified (name : String) : Option String × String :=
  let chars := name.toList
  let space := chars.takeWhile (· != '.')
  match chars.dropWhile (· != '.') with
  | _ :: first :: rest =>
    if space.isEmpty then (none, name)
    else (some (String.ofList space), String.ofList (first :: rest))
  | _ => (none, name)

def join (space name : String) : String := space ++ "." ++ name

/-- The full name of a reference read inside a namespace; a qualified name stays as it is. -/
def qualify (space name : String) : String :=
  match splitQualified name with
  | (some _, _) => name
  | (none, _) => join space name

/-- The container that an array is stored in. -/
inductive ArrayKind where
  | c
  | array
  | ptrArray
  | byteArray
  deriving DecidableEq, Repr, Inhabited

/-- How an array is stored and counted. -/
structure ArrayForm where
  kind : ArrayKind := .c
  fixedSize : Option Nat := none
  lengthParam : Option Nat := none
  zeroTerminated : Bool := false
  deriving DecidableEq, Repr, Inhabited

namespace ArrayForm

def fixed (count : Nat) : ArrayForm where fixedSize := some count

def counted (index : Nat) : ArrayForm where lengthParam := some index

def terminated : ArrayForm where zeroTerminated := true

end ArrayForm

/-- What every reference says about itself, whether it is an array or not. -/
structure Spelling where
  name : String
  cType : Option String := none
  nullable : Bool := false
  transfer : Ownership := .none
  deriving DecidableEq, Repr, Inhabited

inductive TypeRef where
  | plain (spelling : Spelling)
  | array (spelling : Spelling) (form : ArrayForm) (element : TypeRef)
  deriving DecidableEq, Repr, Inhabited

namespace TypeRef

def spelling : TypeRef → Spelling
  | plain spelling => spelling
  | array spelling _ _ => spelling

def name (type : TypeRef) : String := type.spelling.name

def cType (type : TypeRef) : Option String := type.spelling.cType

def nullable (type : TypeRef) : Bool := type.spelling.nullable

def transfer (type : TypeRef) : Ownership := type.spelling.transfer

def mapSpelling (f : Spelling → Spelling) : TypeRef → TypeRef
  | plain spelling => plain (f spelling)
  | array spelling form element => array (f spelling) form element

def named (name : String) : TypeRef := plain { name }

def void : TypeRef := named "none"

def arrayOf (element : TypeRef) (form : ArrayForm) : TypeRef :=
  array { name := "array" } form element

def withCType (type : TypeRef) (cType : String) : TypeRef :=
  type.mapSpelling fun s => { s with cType := some cType }

def withTransfer (type : TypeRef) (transfer : Ownership) : TypeRef :=
  type.mapSpelling fun s => { s with transfer }

def asNullable (type : TypeRef) : TypeRef :=
  type.mapSpelling fun s => { s with nullable := true }

def isArray : TypeRef → Bool
  | plain _ => false
  | array .. => true

def isVoid : TypeRef → Bool
  | plain spelling => spelling.name == "none" || spelling.name == "void"
  | array .. => false

/-- Whether the spelling in C is there and has a star. -/
def isPointerSpelled (type : TypeRef) : Bool := type.cType.any (·.toList.contains '*')

/-- Whether the spelling in C is there and has no star: the value itself is stored. -/
def isInline (type : TypeRef) : Bool := type.cType.any (!·.toList.contains '*')

/-- Whether the value is reached through a pointer; without a spelling in C it is. -/
def isPointer (type : TypeRef) : Bool := type.cType.all (·.toList.contains '*')

end TypeRef

end Interop.Schema
