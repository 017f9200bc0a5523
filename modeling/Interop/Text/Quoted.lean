import Interop.Text.Combining
import Interop.Text.Shapeless

/-! # Text in diagnostics

A text between double quotes. Quotes, backslashes and characters that would not be seen are
written as escapes.
-/

namespace Interop.Quoted

/-- Whether a character would not be seen where it stands: it has no shape, or it joins the one
before it. -/
def isHidden (c : Char) : Bool :=
  Shapeless.table.has c || Combining.table.has c

/-- A character as it stands between the quotes. -/
def escape (c : Char) : List Char :=
  match c with
  | '\x00' => ['\\', '0']
  | '\t' => ['\\', 't']
  | '\n' => ['\\', 'n']
  | '\r' => ['\\', 'r']
  | '"' => ['\\', '"']
  | '\\' => ['\\', '\\']
  | c =>
    if isHidden c then ['\\', 'u', '\x7b'] ++ Nat.toDigits 16 c.toNat ++ ['\x7d'] else [c]

def text (content : String) : String :=
  String.ofList ('"' :: content.toList.flatMap escape ++ ['"'])

def option (content : Option String) : String :=
  match content with
  | some content => "Some(" ++ content ++ ")"
  | none => "None"

/-- The name of a type with the fields of a value. -/
def record (name : String) (fields : List (String × String)) : String :=
  name ++ " \x7b " ++ String.intercalate ", " (fields.map fun field => field.1 ++ ": " ++ field.2)
    ++ " \x7d"

end Interop.Quoted
