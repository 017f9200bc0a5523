import Interop.Number.Power
import Interop.Json.Parser

/-! # Typed readers

A reader turns a JSON value into a value of another type. Each array or object that a reader opens
takes one unit of the *room* it is given, so that documents nested too deeply are refused; a value
that no reader looks at may be nested as deeply as it likes.
-/

namespace Interop

namespace Json

/-- How many arrays and objects may be open at once in a document. -/
def documentRoom : Nat := 127

/-- Reads a value with the given room. -/
abbrev Reader (α : Type) := Nat → Json → Option α

namespace Reader

def string : Reader String
  | _, .str value => some value
  | _, _ => none

def bool : Reader Bool
  | _, .bool value => some value
  | _, _ => none

def word : Reader Nat
  | _, .int value => if 0 ≤ value ∧ value < twoPow 64 then some value.toNat else none
  | _, _ => none

def signed : Reader Int
  | _, .int value => if -twoPow 63 ≤ value ∧ value < twoPow 63 then some value else none
  | _, _ => none

/-- Reads `null` as an absent value. -/
def optional {α : Type} (read : Reader α) : Reader (Option α)
  | _, .null => some none
  | room, value => (read room value).map some

def list {α : Type} (read : Reader α) : Reader (List α)
  | room + 1, .arr items => items.mapM (read room)
  | _, _ => none

/-- Reads one of the given words, or an object whose only key is one and whose value is `null`. -/
def spelled {α : Type} (word? : String → Option α) : Reader α
  | _, .str value => word? value
  | _ + 1, .obj [(key, .null)] => word? key
  | _, _ => none

end Reader

/-- The parts of a record that a value holds under known keys. -/
abbrev Parts := List (String × Json)

namespace Parts

/-- Takes a value apart by the given keys, each of which may stand in it at most once; other keys
are passed over. An array gives the parts in the order of the keys. -/
def ofJson? (keys : List String) : Json → Option Parts
  | .obj members =>
    let known := members.filter fun member => keys.contains member.1
    if (known.map (·.1)).Nodup then some known else none
  | .arr items => if items.length ≤ keys.length then some (keys.zip items) else none
  | _ => none

/-- Reads the part under a key, which must be there. -/
def required {α : Type} (parts : Parts) (key : String) (read : Json → Option α) : Option α :=
  (parts.lookup key).bind read

/-- Reads the part under a key, or takes a default where it is missing. -/
def withDefault {α : Type} (parts : Parts) (key : String) (fallback : α)
    (read : Json → Option α) : Option α :=
  match parts.lookup key with
  | none => some fallback
  | some value => read value

end Parts

mutual

/-- Whether a value can be read to its last part within the given room. -/
def intact : Nat → Json → Bool
  | _, .broken => false
  | 0, .arr _ | 0, .obj _ => false
  | room + 1, .arr items => intactItems room items
  | room + 1, .obj members => intactMembers room members
  | _, _ => true

def intactItems : Nat → List Json → Bool
  | _, [] => true
  | room, item :: rest => intact room item && intactItems room rest

def intactMembers : Nat → List (String × Json) → Bool
  | _, [] => true
  | room, (_, value) :: rest => intact room value && intactMembers room rest

end

end Json

end Interop
