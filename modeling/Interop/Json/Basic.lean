import Interop.Text.Hex

/-! # JSON values and their text

The value type of JSON documents and its compact printer. A number is kept as an integer when its
text is one that fits 64 bits; every other number keeps its text.
-/

namespace Interop

/-- A JSON value. Members of an object keep the order of the text, repetitions included. -/
inductive Json where
  | null
  | bool (value : Bool)
  /-- A number written without fraction and exponent, from `-2^63` up to `2^64 - 1`. -/
  | int (value : Int)
  /-- Any other number that a double can hold, as it was written. -/
  | real (literal : String)
  | str (value : String)
  | arr (items : List Json)
  | obj (members : List (String × Json))
  /-- A value that can be skipped and not read: a string or an object with a lone surrogate in
  it or in one of its keys, or a number beyond the range of doubles. -/
  | broken
  deriving Inhabited

namespace Json

def nat (n : Nat) : Json := .int n

/-- `null` for an absent value. -/
def ofOption {α : Type} (write : α → Json) : Option α → Json
  | none => .null
  | some a => write a

/-- The escape of a character in a string, if it needs one. -/
def escape? (c : Char) : Option (List Char) :=
  match c with
  | '"' => some ['\\', '"']
  | '\\' => some ['\\', '\\']
  | '\x08' => some ['\\', 'b']
  | '\x0c' => some ['\\', 'f']
  | '\n' => some ['\\', 'n']
  | '\r' => some ['\\', 'r']
  | '\t' => some ['\\', 't']
  | c => if c.toNat < 32 then some ('\\' :: 'u' :: Hex.fixed 4 c.toNat) else none

def quoteChars : List Char → List Char
  | [] => []
  | c :: rest => (escape? c).getD [c] ++ quoteChars rest

def quote (text : String) : List Char := '"' :: quoteChars text.toList ++ ['"']

def intChars : Int → List Char
  | .ofNat n => Nat.toDigits 10 n
  | .negSucc n => '-' :: Nat.toDigits 10 (n + 1)

mutual

/-- The compact text of a value. An unreadable value is written as `null`. -/
def chars : Json → List Char
  | .null | .broken => ['n', 'u', 'l', 'l']
  | .bool true => ['t', 'r', 'u', 'e']
  | .bool false => ['f', 'a', 'l', 's', 'e']
  | .int value => intChars value
  | .real literal => literal.toList
  | .str value => quote value
  | .arr [] => ['[', ']']
  | .arr (item :: rest) => '[' :: chars item ++ itemChars rest
  | .obj [] => ['\x7b', '\x7d']
  | .obj ((key, value) :: rest) => '\x7b' :: quote key ++ ':' :: chars value ++ memberChars rest

def itemChars : List Json → List Char
  | [] => [']']
  | item :: rest => ',' :: chars item ++ itemChars rest

def memberChars : List (String × Json) → List Char
  | [] => ['\x7d']
  | (key, value) :: rest => ',' :: quote key ++ ':' :: chars value ++ memberChars rest

end

def text (value : Json) : String := String.ofList value.chars

/-- The first member of an object under a key. -/
def get? (value : Json) (key : String) : Option Json :=
  match value with
  | .obj members => (members.find? (·.1 == key)).map (·.2)
  | _ => none

end Json

end Interop
